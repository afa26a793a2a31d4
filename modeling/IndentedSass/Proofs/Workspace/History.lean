/-
  What was loaded before does not matter.

  A registry keeps what it read, and a file that is read looks for its variables
  in the files that were read.  Still, when no file leads back to itself, what a
  request gives is what it would give at the start of the session.

  * `Registry.Settled`: every file that is kept is what a new registry would read,
    and so are the files it imports, except for those of a set `H`;
  * `Registry.loadInChain_loads`: loading a file keeps this, gives what a new
    registry gives, and takes the file out of `H`;
  * `Registry.result_after`: hence the answer to a request is the same after every
    history of requests.
-/
import Mathlib
import IndentedSass.Proofs.Workspace.Links

namespace IndentedSass

namespace Registry

/-- A request to a registry. -/
inductive Request where
  /-- The file, from what was kept when it is still right. -/
  | load (uri : Uri)
  /-- The file, read again. -/
  | reload (uri : Uri)
  deriving DecidableEq, Repr

/-- The file that a request asks for. -/
def Request.uri : Request → Uri
  | .load uri | .reload uri => uri

/-- The answer to a request. -/
def answer (g : Registry) (disk : Disk) (style : IndentStyle) : Request → Loading
  | .load uri => g.load disk style uri
  | .reload uri => g.reload disk style uri

/-- The registry after requests. -/
def after (g : Registry) (disk : Disk) (style : IndentStyle) (history : List Request) : Registry :=
  history.foldl (fun g request => (g.answer disk style request).registry) g

section

variable {disk : Disk} {style : IndentStyle} {base g a b : Registry} {H : Set Uri} {u v : Uri}

/-- Something was read for a file. -/
def Keeps (g : Registry) (uri : Uri) : Prop := ∃ file, g.files.get? uri = some file

/-- A file can be read. -/
def Readable (g : Registry) (disk : Disk) (uri : Uri) : Prop := ∃ text, g.readText disk uri = .ok text

/-- The registry `g` keeps what the new registry `base` would read.  An import of a
    file that is kept is kept too, unless it is in `H` or cannot be read. -/
structure Settled (disk : Disk) (style : IndentStyle) (base : Registry) (H : Set Uri)
    (g : Registry) : Prop where
  documents : g.documents = base.documents
  text : ∀ {u file}, g.files.get? u = some file →
    base.readText disk u = .ok file.text ∧ file.style = style
  entry : ∀ {u file}, g.files.get? u = some file →
    (base.load disk style u).result = .ok file.entry
  links : ∀ {u file v}, g.files.get? u = some file → v ∈ file.entry.imports →
    base.Links disk style u v
  imports : ∀ {u file v}, g.files.get? u = some file → v ∈ file.entry.imports → v ∉ H →
    base.Readable disk v → g.Keeps v

theorem settled_new (hnew : base.files = .empty) (H : Set Uri) :
    base.Settled disk style H base := by
  constructor <;> simp [hnew]

theorem Settled.readable (h : base.Settled disk style H g) (hu : g.Keeps u) :
    base.Readable disk u := by
  obtain ⟨file, hfile⟩ := hu
  exact ⟨file.text, (h.text hfile).1⟩

theorem Settled.documents_frame (h : base.Settled disk style H g) (uri : Uri) :
    g.readText disk uri = base.readText disk uri ∧
      ∀ path, g.resolve? disk uri path = base.resolve? disk uri path :=
  ⟨readText_congr h.documents uri, resolve?_congr h.documents uri⟩

theorem Settled.entry?_eq (ha : base.Settled disk style H a) (hb : base.Settled disk style H b)
    (h : base.Readable disk u → a.Keeps u ∧ b.Keeps u) : a.entry? u = b.entry? u := by
  by_cases hu : base.Readable disk u
  · obtain ⟨⟨file, hfile⟩, ⟨file', hfile'⟩⟩ := h hu
    have hsame : file.entry = file'.entry :=
      Except.ok.inj ((ha.entry hfile).symm.trans (hb.entry hfile'))
    simp [hfile, entry?, hfile', hsame]
  · have hnone : ∀ {g : Registry}, base.Settled disk style H g → g.entry? u = none := by
      intro g hg
      cases hfile : g.files.get? u with
      | none => simp [hfile, entry?]
      | some file => exact absurd (hg.readable ⟨file, hfile⟩) hu
    rw [hnone ha, hnone hb]

/-- Two settled registries find the variables of a file in the same place, when
    they keep the file and nothing that it leads to is left out. -/
theorem Settled.findVariable?_eq (ha : base.Settled disk style H a)
    (hb : base.Settled disk style H b)
    (hreach : ∀ w, Relation.ReflTransGen (base.Links disk style) v w → w ∉ H)
    (hv : base.Readable disk v → a.Keeps v ∧ b.Keeps v) (name : Text) :
    a.findVariable? v name = b.findVariable? v name := by
  refine findFrom?_congr {w | Relation.ReflTransGen (base.Links disk style) v w ∧
    (base.Readable disk w → a.Keeps w ∧ b.Keeps w)} ?_ ?_ name [] [v] ?_
  · rintro w ⟨-, hw⟩
    exact ha.entry?_eq hb hw
  · rintro w ⟨hvw, hw⟩ entry hentry x hx
    obtain ⟨file, hfile, rfl⟩ := Option.map_eq_some_iff.1 hentry
    obtain ⟨⟨file', hfile'⟩, -⟩ := hw (hb.readable ⟨file, hfile⟩)
    have hsame : file'.entry = file.entry :=
      Except.ok.inj ((ha.entry hfile').symm.trans (hb.entry hfile))
    have hvx := hvw.tail (hb.links hfile hx)
    exact ⟨hvx, fun hread => ⟨ha.imports hfile' (hsame ▸ hx) (hreach x hvx) hread,
      hb.imports hfile hx (hreach x hvx) hread⟩⟩
  · intro w hw
    rw [List.mem_singleton.1 hw]
    exact ⟨.refl, hv⟩

/-! ## Loading a file -/

/-- What loading a file `u` from the registry `g` gives. -/
structure Loads (disk : Disk) (style : IndentStyle) (base : Registry) (H : Set Uri) (u : Uri)
    (g : Registry) (l : Loading) : Prop where
  result : l.result = (base.load disk style u).result
  settled : base.Settled disk style (H \ {u}) l.registry
  kept : ∀ {v}, g.Keeps v → l.registry.Keeps v
  stored : base.Readable disk u → l.registry.Keeps u

theorem Settled.mono {H' : Set Uri} (h : base.Settled disk style H g)
    (hsub : ∀ v ∈ H, v ∉ H' → base.Readable disk v → g.Keeps v) : base.Settled disk style H' g :=
  ⟨h.documents, h.text, h.entry, h.links, fun {_ _ v} hfile hv hH' hread => by
    by_cases hH : v ∈ H
    · exact hsub v hH hH' hread
    · exact h.imports hfile hv hH hread⟩

/-- The registry keeps a file that was just read. -/
theorem Settled.store {text : Text} {entry : FileEntry} (h : base.Settled disk style H g)
    (htext : base.readText disk u = .ok text) (hentry : (base.load disk style u).result = .ok entry)
    (hlinks : ∀ v ∈ entry.imports, base.Links disk style u v)
    (himports : ∀ v ∈ entry.imports, base.Readable disk v → g.Keeps v) :
    base.Settled disk style (H \ {u}) (g.store u ⟨text, style, entry⟩) := by
  have hkeeps : ∀ {v}, g.Keeps v → (g.store u ⟨text, style, entry⟩).Keeps v := by
    rintro v ⟨file, hfile⟩
    simp only [Keeps, Registry.store, Table.get?_insert]
    split
    · exact ⟨_, rfl⟩
    · exact ⟨file, hfile⟩
  have hcases : ∀ {v file}, (g.store u ⟨text, style, entry⟩).files.get? v = some file →
      (v = u ∧ file = ⟨text, style, entry⟩) ∨ g.files.get? v = some file := by
    intro v file hfile
    simp only [Registry.store, Table.get?_insert] at hfile
    split at hfile
    · rename_i hvu
      exact .inl ⟨hvu, (Option.some.inj hfile).symm⟩
    · exact .inr hfile
  refine ⟨h.documents, fun hfile => ?_, fun hfile => ?_, fun hfile hv => ?_,
    fun {_ _ w} hfile hw hH hread => ?_⟩
  · rcases hcases hfile with ⟨rfl, rfl⟩ | hold
    · exact ⟨htext, rfl⟩
    · exact h.text hold
  · rcases hcases hfile with ⟨rfl, rfl⟩ | hold
    · exact hentry
    · exact h.entry hold
  · rcases hcases hfile with ⟨rfl, rfl⟩ | hold
    · exact hlinks _ hv
    · exact h.links hold hv
  · rcases hcases hfile with ⟨rfl, rfl⟩ | hold
    · exact hkeeps (himports _ hw hread)
    · by_cases hwu : w = u
      · subst hwu
        exact ⟨_, Table.get?_insert_self ..⟩
      · exact hkeeps (h.imports hold hw (fun hmem => hH ⟨hmem, hwu⟩) hread)

/-- Two ways to load files that are right for what `u` links to read `u` alike. -/
theorem Settled.readFile_eq {load load' : Registry → IndentStyle → Uri → Loading} {text : Text}
    (htext : base.readText disk u = .ok text)
    (hreach : ∀ v, Relation.TransGen (base.Links disk style) u v → v ∉ H)
    (hload : ∀ {v g}, base.Links disk style u v → base.Settled disk style H g →
      Loads disk style base H v g (load g style v))
    (hload' : ∀ {v g}, base.Links disk style u v → base.Settled disk style H g →
      Loads disk style base H v g (load' g style v))
    (ha : base.Settled disk style H a) (hb : base.Settled disk style H b) :
    (readFile (resolver disk load) a u style text).reader =
        (readFile (resolver disk load') b u style text).reader ∧
      base.Settled disk style H (readFile (resolver disk load) a u style text).files ∧
      (∀ {v}, a.Keeps v → (readFile (resolver disk load) a u style text).files.Keeps v) ∧
      ∀ v ∈ (readFile (resolver disk load) a u style text).entry.imports,
        base.Links disk style u v ∧
          (base.Readable disk v → (readFile (resolver disk load) a u style text).files.Keeps v) := by
  have hsim : (resolver disk load).Simulates (resolver disk load')
      (fun loaded x y => base.Settled disk style H x ∧ base.Settled disk style H y ∧
        (∀ {v}, a.Keeps v → x.Keeps v) ∧
        ∀ v ∈ loaded, base.Links disk style u v ∧ (base.Readable disk v → x.Keeps v ∧ y.Keeps v))
      u style (importedPaths style text) := by
    refine ⟨fun {_ x y _} h hpath => ⟨?_, h⟩,
      fun {_ x y _ v _ _} ⟨hx, hy, hkept, hloaded⟩ hpath hv hv' => ?_,
      fun {_ x y v} ⟨hx, hy, _, hloaded⟩ hv _ _ _ name => ?_⟩
    · exact (h.1.documents_frame u).2 _ |>.trans ((h.2.1.documents_frame u).2 _).symm
    · obtain ⟨hfound, rfl⟩ := Prod.mk.inj hv
      obtain ⟨-, rfl⟩ := Prod.mk.inj hv'
      have hlink : base.Links disk style u v :=
        ⟨text, htext, _, hpath, ((hx.documents_frame u).2 _).symm.trans hfound⟩
      have hout : v ∉ H := hreach v (.single hlink)
      have hl := hload hlink hx
      have hl' := hload' hlink hy
      rw [← Set.sdiff_singleton_eq_self hout]
      refine ⟨hl.settled, hl'.settled, fun h => hl.kept (hkept h), fun w hw => ?_⟩
      rcases List.mem_cons.1 hw with rfl | hw
      · exact ⟨hlink, fun hread => ⟨hl.stored hread, hl'.stored hread⟩⟩
      · obtain ⟨hlink', hkeeps⟩ := hloaded w hw
        exact ⟨hlink', fun hread => ⟨hl.kept (hkeeps hread).1, hl'.kept (hkeeps hread).2⟩⟩
    · obtain ⟨hlink, hkeeps⟩ := hloaded v hv
      have hsame := hx.findVariable?_eq hy
        (fun w hvw => hreach w (.head' hlink hvw)) hkeeps name
      exact congrArg (Option.map FoundVariable.location) hsame
  obtain ⟨hreader, loaded, ⟨hsettled, -, hkept, hloaded⟩, himports⟩ :=
    readFile_simulates hsim ⟨ha, hb, fun h => h, fun v hv => by cases hv⟩
  refine ⟨hreader, hsettled, hkept, fun v hv => ?_⟩
  obtain ⟨hlink, hkeeps⟩ := hloaded v (himports v hv)
  exact ⟨hlink, fun hread => (hkeeps hread).1⟩

/-- Without cycles, files that link to each other in a row are all different. -/
theorem chain_nodup (hacyclic : ∀ u, ¬Relation.TransGen (base.Links disk style) u u)
    {chain : List Uri} (h : List.IsChain (base.Links disk style) chain) : chain.Nodup := by
  have hpairs : chain.Pairwise (Relation.TransGen (base.Links disk style)) :=
    (h.imp fun _ _ hlink => Relation.TransGen.single hlink).pairwise
  refine hpairs.imp fun {u v} huv => ?_
  rintro rfl
  exact hacyclic u huv

/-- Without cycles, a file is not in the chain that led to it, and the bound on the length of
    chains is not reached. -/
theorem chain_room (hacyclic : ∀ u, ¬Relation.TransGen (base.Links disk style) u u) {bound : Nat}
    {chain : List Uri} (hchain : List.IsChain (base.Links disk style) (chain ++ [u]))
    (hbound : bound + chain.length = base.chainBound) : u ∉ chain ∧ ∃ k, bound = k + 1 := by
  have hnodup := chain_nodup hacyclic hchain
  constructor
  · rw [List.nodup_append] at hnodup
    exact fun hu => hnodup.2.2 u hu u (List.mem_singleton_self u) rfl
  · refine Nat.exists_eq_add_one.2 ?_
    have hlength : (chain ++ [u]).length ≤ base.chainBound := by
      cases hc : chain ++ [u] with
      | nil => simp at hc
      | cons w rest =>
        rw [hc] at hchain hnodup
        exact chain_length_le hchain (List.nodup_cons.1 hnodup).2
    rw [List.length_append, List.length_singleton] at hlength
    omega

/-- What is kept for a file that can be read is found. -/
theorem Settled.stored?_eq {text : Text} (h : base.Settled disk style H g)
    (hread : base.readText disk u = .ok text) : g.stored? u text style = g.entry? u := by
  cases hfile : g.files.get? u with
  | none => simp [stored?, entry?, hfile]
  | some file =>
    obtain ⟨htext, hstyle⟩ := h.text hfile
    have hsame : file.text = text := Except.ok.inj (htext.symm.trans hread)
    simp [stored?, entry?, hfile, hsame, hstyle]

/-- The bound on the length of chains is never reached, so loading a file from a
    settled registry gives what a new registry gives.  The induction is on the
    length of the chains that start at the file. -/
theorem loadInChain_loads (hnew : base.files = .empty)
    (hacyclic : ∀ u, ¬Relation.TransGen (base.Links disk style) u u) :
    ∀ (n : Nat) {u : Uri}, (∀ l, List.IsChain (base.Links disk style) (u :: l) → l.length < n) →
      ∀ {g : Registry} {H : Set Uri} {bound : Nat} {chain : List Uri},
        base.Settled disk style H g →
        (∀ v, Relation.TransGen (base.Links disk style) u v → v ∉ H) →
        List.IsChain (base.Links disk style) (chain ++ [u]) →
        bound + chain.length = base.chainBound →
        Loads disk style base H u g (loadInChain disk bound chain g style u) := by
  intro n
  induction n with
  | zero => exact fun hlong => absurd (hlong [] (.singleton _)) (Nat.not_lt_zero _)
  | succ n ih =>
    intro u hlong g H bound chain hg hreach hchain hbound
    obtain ⟨hmem, bound, rfl⟩ := chain_room hacyclic hchain hbound
    obtain ⟨limit, hlimit⟩ : ∃ k, base.chainBound = k + 1 := ⟨_, rfl⟩
    have hbase : base.load disk style u = loadInChain disk (limit + 1) [] base style u := by
      rw [Registry.load, hlimit]
    have hframe := (hg.documents_frame u).1
    cases hread : base.readText disk u with
    | error e =>
      rw [loadInChain_of_error hmem (hframe.trans hread)]
      have hnot : ¬base.Readable disk u := by
        rintro ⟨text, htext⟩
        rw [htext] at hread
        cases hread
      refine ⟨?_, hg.mono fun v hv hout hcan => ?_, fun h => h, fun h => absurd h hnot⟩
      · rw [hbase, loadInChain_of_error (List.not_mem_nil) hread]
      · obtain rfl : v = u := by
          by_contra hne
          exact hout ⟨hv, hne⟩
        exact absurd hcan hnot
    | ok text =>
      have hstored := hg.stored?_eq hread
      cases hentry : g.entry? u with
      | some entry =>
        rw [loadInChain_of_stored hmem (hframe.trans hread) (hstored.trans hentry)]
        obtain ⟨file, hfile, rfl⟩ := Option.map_eq_some_iff.1 hentry
        refine ⟨(hg.entry hfile).symm, hg.mono fun v hv hout hread => ?_, fun h => h,
          fun _ => ⟨file, hfile⟩⟩
        obtain rfl : v = u := by
          by_contra hne
          exact hout ⟨hv, hne⟩
        exact ⟨file, hfile⟩
      | none =>
        have hchild : ∀ (bound : Nat) (chain : List Uri) {v : Uri} {g : Registry},
            base.Links disk style u v → List.IsChain (base.Links disk style) (chain ++ [u]) →
            bound + 1 + chain.length = base.chainBound → base.Settled disk style H g →
            Loads disk style base H v g (loadInChain disk bound (chain ++ [u]) g style v) := by
          intro bound chain v g hlink hchain hbound hg
          refine ih (fun l hl => ?_) hg (fun w hw => hreach w (.head hlink hw))
            (hlink.concat hchain) ?_
          · have := hlong (v :: l) (.cons_cons hlink hl)
            simpa using this
          · rw [List.length_append, List.length_singleton]
            omega
        have hnone : base.stored? u text style = none := by simp [stored?, hnew]
        obtain ⟨hreader, hsettled, hkept, himports⟩ := Settled.readFile_eq hread hreach
          (fun hlink hg => hchild bound chain hlink hchain hbound hg)
          (fun hlink hg => hchild limit [] hlink (.singleton u) hlimit.symm hg)
          hg (settled_new hnew H)
        have hsame : (base.load disk style u).result =
            .ok (readFile (resolver disk (loadInChain disk bound (chain ++ [u]))) g u style
              text).entry := by
          rw [hbase, loadInChain_of_new List.not_mem_nil hread hnone]
          exact congrArg (fun r : Reader => Except.ok (FileEntry.mk r.nodes r.diagnostics)) hreader.symm
        rw [loadInChain_of_new hmem (hframe.trans hread) (hstored.trans hentry)]
        refine ⟨hsame.symm, hsettled.store hread hsame (fun v hv => (himports v hv).1)
          fun v hv => (himports v hv).2, fun {v} hv => ?_, fun _ => ⟨_, Table.get?_insert_self ..⟩⟩
        obtain ⟨file, hfile⟩ := hkept hv
        by_cases hvu : v = u
        · subst hvu
          exact ⟨_, Table.get?_insert_self ..⟩
        · exact ⟨file, (Table.get?_insert_of_ne _ _ hvu).trans hfile⟩

/-! ## Requests -/

theorem load_loads (hnew : base.files = .empty)
    (hacyclic : ∀ u, ¬Relation.TransGen (base.Links disk style) u u)
    (hg : base.Settled disk style H g)
    (hreach : ∀ v, Relation.TransGen (base.Links disk style) u v → v ∉ H) :
    Loads disk style base H u g (g.load disk style u) := by
  have hbound : g.chainBound = base.chainBound := by simp only [chainBound, hg.documents]
  rw [Registry.load, hbound]
  refine loadInChain_loads hnew hacyclic base.chainBound (fun l hl => ?_) hg hreach (.singleton u)
    (Nat.add_zero _)
  exact chain_length_le hl (List.nodup_cons.1 (chain_nodup hacyclic hl)).2

theorem Settled.forget (hg : base.Settled disk style ∅ g) (u : Uri) :
    base.Settled disk style {u} (g.forget u) := by
  have hget : ∀ {v file}, (g.forget u).files.get? v = some file →
      v ≠ u ∧ g.files.get? v = some file := by
    intro v file hfile
    simp only [Registry.forget, Table.get?_erase] at hfile
    split at hfile
    · cases hfile
    · rename_i hne
      exact ⟨hne, hfile⟩
  refine ⟨hg.documents, fun h => hg.text (hget h).2, fun h => hg.entry (hget h).2,
    fun h hv => hg.links (hget h).2 hv, fun {_ _ w} h hw hout hread => ?_⟩
  obtain ⟨file, hfile⟩ := hg.imports (hget h).2 hw (Set.notMem_empty w) hread
  exact ⟨file, (Table.get?_erase_of_ne _ hout).trans hfile⟩

/-- A request gives what loading the file in a new registry gives. -/
theorem answer_settled (hnew : base.files = .empty)
    (hacyclic : ∀ u, ¬Relation.TransGen (base.Links disk style) u u)
    (hg : base.Settled disk style ∅ g) (request : Request) :
    (g.answer disk style request).result = (base.load disk style request.uri).result ∧
      base.Settled disk style ∅ (g.answer disk style request).registry := by
  cases request with
  | load u =>
    have h := load_loads hnew hacyclic hg (u := u) fun v _ => Set.notMem_empty v
    refine ⟨h.result, ?_⟩
    show base.Settled disk style ∅ (g.load disk style u).registry
    simpa using h.settled
  | reload u =>
    have h := load_loads hnew hacyclic (hg.forget u) (u := u) fun v huv => by
      rintro rfl
      exact hacyclic v huv
    refine ⟨h.result, ?_⟩
    show base.Settled disk style ∅ ((g.forget u).load disk style u).registry
    simpa using h.settled

theorem after_settled (hnew : base.files = .empty)
    (hacyclic : ∀ u, ¬Relation.TransGen (base.Links disk style) u u) (history : List Request) :
    base.Settled disk style ∅ (base.after disk style history) := by
  induction history using List.reverseRecOn with
  | nil => exact settled_new hnew ∅
  | append_singleton history request ih =>
    obtain ⟨-, hnext⟩ := answer_settled hnew hacyclic ih request
    simpa only [after, List.foldl_append, List.foldl_cons, List.foldl_nil] using hnext

end

/-- What a request gives does not depend on the requests before it, when no file
    leads back to itself. -/
theorem result_after {disk : Disk} {style : IndentStyle} {g : Registry} (hnew : g.files = .empty)
    (hacyclic : ∀ u, ¬Relation.TransGen (g.Links disk style) u u) (history : List Request)
    (request : Request) :
    ((g.after disk style history).answer disk style request).result =
      (g.answer disk style request).result := by
  obtain ⟨hlater, -⟩ := answer_settled hnew hacyclic (after_settled hnew hacyclic history) request
  obtain ⟨hfirst, -⟩ := answer_settled hnew hacyclic (settled_new hnew ∅) request
  rw [hlater, hfirst]

/-- Four documents: the first imports two others, which share the last one. -/
def diamond : Registry :=
  ofDocuments [("/main.sass", "@import 'a', 'b'\nc\n  d: $v"), ("/a.sass", "@import 'c'"),
    ("/b.sass", "@use 'c'\n$w: c.$v"), ("/c.sass", "$v: 1")]

/-- The first document imports the last one in two ways, and still nothing leads back.  A load, a load
    that fails and a reload of the shared document do not tell on the load of another one. -/
theorem result_after_diamond :
    diamond.files = .empty ∧ (∀ u, ¬Relation.TransGen (diamond.Links {} {}) u u) ∧
      let file (path : String) : Uri := .ofPath (.ofBytes (FileName.ofString path))
      ((diamond.after {} {} [.load (file "/main.sass"), .load (file "/missing.sass"),
          .reload (file "/c.sass")]).answer {} {} (.load (file "/a.sass"))).result =
        (diamond.answer {} {} (.load (file "/a.sass"))).result := by
  -- a document stands before the documents that it imports
  have hrank : ∀ u v, diamond.Links {} {} u v →
      diamond.documents.keys.idxOf u < diamond.documents.keys.idxOf v := by
    intro u v h
    obtain ⟨d, hd, path, hpath, hv⟩ := h.document
    have hall : ∀ e ∈ diamond.documents.entries, ∀ path ∈ importedPaths {} e.2.text,
        ∀ v ∈ diamond.resolve? {} e.1 path,
          diamond.documents.keys.idxOf e.1 < diamond.documents.keys.idxOf v := by
      decide +kernel
    exact hall (u, d) hd path hpath v hv
  have hacyclic : ∀ u, ¬Relation.TransGen (diamond.Links {} {}) u u := by
    intro u hu
    have hlt := hu.lift diamond.documents.keys.idxOf hrank
    rw [Relation.transGen_eq_self] at hlt
    exact absurd hlt (Nat.lt_irrefl _)
  exact ⟨rfl, hacyclic, result_after rfl hacyclic _ _⟩

end Registry

end IndentedSass
