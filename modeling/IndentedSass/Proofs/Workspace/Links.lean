/-
  The files that files link to.

  * `Registry.Links`: the text of a file has an `@import` or `@use` line that means
    another file;
  * `Registry.chain_length_le`: files that link to each other in a row, each of
    them once, are no more than `Registry.chainBound`;
  * `Registry.findFrom?_map_congr`: where a variable is found depends only on the files
    that can be reached, and on what these offer (`FileEntry.Offers`).
-/
import Mathlib
import IndentedSass.Workspace.Load
import IndentedSass.Proofs.Reader.Resolvers
import IndentedSass.Proofs.Workspace.Paths

namespace IndentedSass

theorem Table.mem_entries_of_get? {α β : Type} [DecidableEq α] {t : Table α β} {k : α} {v : β}
    (h : t.get? k = some v) : (k, v) ∈ t.entries := by
  obtain ⟨entries⟩ := t
  simp only [get?] at h
  induction entries with
  | nil => cases h
  | cons e entries ih =>
    obtain ⟨k', v'⟩ := e
    by_cases hk : k = k'
    · subst hk
      simp only [List.lookup_cons, beq_self_eq_true, Option.some.injEq] at h
      simp [h]
    · have hne : (k == k') = false := by simp [hk]
      simp only [List.lookup_cons, hne] at h
      exact List.mem_cons_of_mem _ (ih h)

/-- Two files import the same files and declare the same variables, as far as `f` tells of a
    declaration. -/
structure FileEntry.Offers {α : Type} (f : VariableDecl → α) (first second : FileEntry) : Prop where
  imports : first.imports = second.imports
  declares : ∀ name, (first.topLevelVariable? name).map f = (second.topLevelVariable? name).map f

namespace Path

theorem candidates_names_ne_nil {p q : Path} (hq : q ∈ p.candidates) : q.names ≠ [] := by
  unfold candidates at hq
  split at hq
  · cases hq
  · rename_i n hname
    have hp : p.names ≠ [] := by
      intro hnil
      simp [fileName?, hnil] at hname
    split at hq
    · cases hq
    split at hq
    · simp only [List.mem_cons, List.not_mem_nil, or_false] at hq
      rcases hq with rfl | rfl
      · exact hp
      · simp [withFileName]
    · simp only [List.mem_append, List.mem_flatMap, List.mem_cons, List.not_mem_nil, or_false] at hq
      rcases hq with ⟨e, he, rfl | rfl⟩ | ⟨e, he, rfl | rfl⟩ <;> simp [withFileName, child]

end Path

namespace Registry

variable {g : Registry} {disk : Disk} {style : IndentStyle} {u v : Uri}

/-- The file `u` has an `@import` or `@use` line that means the file `v`. -/
def Links (g : Registry) (disk : Disk) (style : IndentStyle) (u v : Uri) : Prop :=
  ∃ text, g.readText disk u = .ok text ∧
    ∃ path ∈ importedPaths style text, g.resolve? disk u path = some v

/-- An import path means the file at a clean path. -/
theorem resolve?_eq_some {base : Uri} {path : Text} (h : g.resolve? disk base path = some v) :
    ∃ p : Path, p.Clean ∧ p.names ≠ [] ∧ g.hasFile disk p = true ∧ v = .ofPath p := by
  unfold resolve? at h
  split at h
  · cases h
  · simp only [bind, Option.bind_eq_some_iff, pure, Option.some.injEq] at h
    obtain ⟨basePath, hbase, directory, hparent, p, hfind, rfl⟩ := h
    obtain ⟨bytes, -, rfl⟩ := Option.map_eq_some_iff.1 hbase
    have hdirectory : directory.Clean := (Path.clean_ofBytes bytes).parent hparent
    have hmem := List.mem_of_find?_eq_some hfind
    exact ⟨p, (hdirectory.join path).candidates hmem, Path.candidates_names_ne_nil hmem,
      List.find?_some hfind, rfl⟩

theorem resolve?_congr {g' : Registry} (h : g'.documents = g.documents) (base : Uri) (path : Text) :
    g'.resolve? disk base path = g.resolve? disk base path := by
  have hfile : g'.hasFile disk = g.hasFile disk := by
    funext p
    simp only [hasFile, h]
  simp only [resolve?, hfile]

theorem readText_congr {g' : Registry} (h : g'.documents = g.documents) (uri : Uri) :
    g'.readText disk uri = g.readText disk uri := by
  simp only [readText, documentText?, h]

/-! ## Chains of files -/

/-- A file that an import means is an open document, or the file at a path that is
    short enough for the disk. -/
theorem Links.target (h : g.Links disk style u v) :
    v ∈ g.documents.keys ∨ ∃ p : Path, p.Clean ∧ p.size ≤ Path.maxBytes ∧ v = .ofPath p := by
  obtain ⟨text, -, path, -, hresolve⟩ := h
  obtain ⟨p, hclean, -, hfile, rfl⟩ := resolve?_eq_some hresolve
  rcases Bool.or_eq_true_iff.1 hfile with hdisk | hdocument
  · refine .inr ⟨p, hclean, ?_, rfl⟩
    by_contra hsize
    have hlong : Path.maxBytes < p.size := Nat.lt_of_not_le hsize
    simp [Disk.hasFile, Disk.read?, hlong] at hdisk
  · obtain ⟨document, hget⟩ := Option.isSome_iff_exists.1 hdocument
    exact .inl (Table.mem_keys_of_get? hget)

theorem length_le_of_paths {n : Nat} {uris : List Uri} (hnodup : uris.Nodup)
    (h : ∀ v ∈ uris, ∃ p : Path, p.Clean ∧ p.size ≤ n ∧ v = .ofPath p) :
    uris.length ≤ 256 ^ (n + 1) := by
  have hsub : uris.toFinset ⊆ (Finset.range (256 ^ (n + 1))).image
      fun k => Uri.ofPath ⟨Path.decodeNames k, false⟩ := by
    intro v hv
    obtain ⟨p, hclean, hsize, rfl⟩ := h v (List.mem_toFinset.1 hv)
    obtain ⟨k, hlt, hk⟩ := hclean.exists_code
    refine Finset.mem_image.2 ⟨k, Finset.mem_range.2 ?_, ?_⟩
    · exact hlt.trans_le (Nat.pow_le_pow_right (by norm_num) (by omega))
    · simp only [Uri.ofPath, hk]
  calc uris.length = uris.toFinset.card := (List.toFinset_card_of_nodup hnodup).symm
    _ ≤ _ := Finset.card_le_card hsub
    _ ≤ (Finset.range (256 ^ (n + 1))).card := Finset.card_image_le
    _ = 256 ^ (n + 1) := Finset.card_range _

theorem Links.concat {chain : List Uri} (h : g.Links disk style u v)
    (hchain : (chain ++ [u]).IsChain (g.Links disk style)) :
    (chain ++ [u] ++ [v]).IsChain (g.Links disk style) := by
  refine List.isChain_append.2 ⟨hchain, .singleton v, fun x hx y hy => ?_⟩
  simp only [List.getLast?_append, List.getLast?_singleton, List.head?_cons, Option.some_or,
    Option.mem_some_iff] at hx hy
  rw [← hx, ← hy]
  exact h

/-- Files that link to each other in a row, each of them once. -/
theorem chain_length_le {chain : List Uri} (hchain : List.IsChain (g.Links disk style) (u :: chain))
    (hnodup : chain.Nodup) : (u :: chain).length ≤ g.chainBound := by
  have htarget : ∀ v ∈ chain, ∃ u, g.Links disk style u v := by
    clear hnodup
    induction chain generalizing u with
    | nil => simp
    | cons w chain ih =>
      rw [List.isChain_cons_cons] at hchain
      intro v hv
      rcases List.mem_cons.1 hv with rfl | hv
      · exact ⟨u, hchain.1⟩
      · exact ih hchain.2 v hv
  have hopen : (chain.filter (· ∈ g.documents.keys)).length ≤ g.documents.size := by
    have hle : (chain.filter (· ∈ g.documents.keys)).length ≤ g.documents.keys.length :=
      ((hnodup.filter _).subperm fun v hv => by simpa using List.of_mem_filter hv).length_le
    simpa [Table.keys, Table.size] using hle
  have hclosed : (chain.filter (· ∉ g.documents.keys)).length ≤ 256 ^ (Path.maxBytes + 1) := by
    refine length_le_of_paths (hnodup.filter _) fun v hv => ?_
    obtain ⟨hmem, hkey⟩ := List.mem_filter.1 hv
    obtain ⟨u, hlink⟩ := htarget v hmem
    rcases hlink.target with habs | hpath
    · simp [habs] at hkey
    · exact hpath
  have hsplit := List.length_eq_length_filter_add (l := chain) (· ∈ g.documents.keys)
  have hnot : (chain.filter fun v => !decide (v ∈ g.documents.keys)) =
      chain.filter (· ∉ g.documents.keys) := by
    congr 1
    funext v
    simp
  rw [hnot] at hsplit
  simp only [List.length_cons, chainBound, Nat.pow_eq]
  omega

/-! ## Open documents -/

/-- A new registry in which documents with these paths and texts are open. -/
def ofDocuments (documents : List (String × String)) : Registry where
  documents := ⟨documents.map fun (path, text) =>
    (.ofPath (.ofBytes (FileName.ofString path)), ⟨text.toList, 1, 1⟩)⟩

/-- Without files on disk, what links is an open document. -/
theorem Links.document (h : g.Links {} style u v) :
    ∃ d, (u, d) ∈ g.documents.entries ∧
      ∃ path ∈ importedPaths style d.text, g.resolve? {} u path = some v := by
  obtain ⟨text, hread, path, hpath, hv⟩ := h
  have hempty : ∀ p, ({} : Disk).readText? p = none := by
    intro p
    cases hplace : ({} : Disk).follow? [] p.names <;> simp [Disk.readText?, Disk.read?, hplace]
  simp only [readText, hempty] at hread
  split at hread
  · rename_i hopen
    obtain ⟨d, hget, rfl⟩ := Option.map_eq_some_iff.1 hopen
    cases hread
    exact ⟨d, Table.mem_entries_of_get? hget, path, hpath, hv⟩
  · cases hread
  · cases hread

/-- Without files on disk, a list of the documents in which each stands before those that it
    imports shows that no file leads back to itself. -/
theorem acyclic_of_ranks (rank : Uri → Nat)
    (hrank : ∀ e ∈ g.documents.entries, ∀ path ∈ importedPaths style e.2.text,
      ∀ v ∈ g.resolve? {} e.1 path, rank e.1 < rank v) (u : Uri) :
    ¬Relation.TransGen (g.Links {} style) u u := by
  intro hu
  have hlt := hu.lift rank fun u v h => by
    obtain ⟨d, hd, path, hpath, hv⟩ := h.document
    exact hrank (u, d) hd path hpath v hv
  rw [Relation.transGen_eq_self] at hlt
  exact absurd hlt (Nat.lt_irrefl _)

/-! ## Loading a file -/

variable {bound : Nat} {chain : List Uri} {text : Text}

theorem loadInChain_of_mem (hmem : u ∈ chain) :
    (loadInChain disk bound chain g style u).registry = g ∧
      (loadInChain disk bound chain g style u).result = .error (.importCycle u) := by
  cases bound with
  | zero => exact ⟨rfl, rfl⟩
  | succ bound => simp [loadInChain, hmem]

theorem loadInChain_of_error {e : LoadError} (hmem : u ∉ chain)
    (hread : g.readText disk u = .error e) :
    loadInChain disk (bound + 1) chain g style u = ⟨g, [], .error e, false⟩ := by
  simp [loadInChain, hmem, hread]

theorem loadInChain_of_stored {entry : FileEntry}
    (hmem : u ∉ chain)
    (hread : g.readText disk u = .ok text) (hstored : g.stored? u text style = some entry) :
    loadInChain disk (bound + 1) chain g style u = ⟨g, [], .ok entry, true⟩ := by
  simp [loadInChain, hmem, hread, hstored]

theorem loadInChain_of_new (hmem : u ∉ chain) (hread : g.readText disk u = .ok text)
    (hstored : g.stored? u text style = none) :
    loadInChain disk (bound + 1) chain g style u =
      let reading := readFile (resolver disk (loadInChain disk bound (chain ++ [u]))) g u style text
      ⟨reading.files.store u ⟨text, style, reading.entry⟩, reading.warnings, .ok reading.entry,
        false⟩ := by
  simp [loadInChain, hmem, hread, hstored]

/-! ## Variables of files -/

/-- A variable is found alike in two registries, as far as `f` tells of its declaration, when
    the files that can be reached offer the same. -/
theorem findFrom?_map_congr {α : Type} (f : VariableDecl → α) {g' : Registry} (reach : Set Uri)
    (hsame : ∀ uri ∈ reach, Option.Rel (FileEntry.Offers f) (g.entry? uri) (g'.entry? uri))
    (hclosed : ∀ uri ∈ reach, ∀ entry, g.entry? uri = some entry → ∀ v ∈ entry.imports, v ∈ reach)
    (name : Text) (seen todo : List Uri) (htodo : ∀ uri ∈ todo, uri ∈ reach) :
    (g'.findFrom? name seen todo).map (fun found => (found.uri, f found.decl)) =
      (g.findFrom? name seen todo).map fun found => (found.uri, f found.decl) := by
  have hstored : ∀ uri ∈ reach, ∀ entry, g.entry? uri = some entry →
      ∃ entry', g'.entry? uri = some entry' ∧ entry.Offers f entry' := by
    intro uri hreach entry hentry
    have hrel := hsame uri hreach
    rw [hentry] at hrel
    generalize g'.entry? uri = found at hrel ⊢
    cases hrel with
    | some hoffers => exact ⟨_, rfl, hoffers⟩
  have hmissing : ∀ uri ∈ reach, g.entry? uri = none → g'.entry? uri = none := by
    intro uri hreach hnone
    have hrel := hsame uri hreach
    rw [hnone] at hrel
    generalize g'.entry? uri = found at hrel ⊢
    cases hrel
    rfl
  fun_induction g.findFrom? name seen todo with
  | case1 => rw [findFrom?]
  | case2 seen uri todo hmem ih =>
    rw [findFrom?_skip (.inl hmem)]
    exact ih fun v hv => htodo v (List.mem_cons_of_mem _ hv)
  | case3 seen uri todo hmem hfile ih =>
    have hnone := hmissing uri (htodo uri (List.mem_cons_self ..)) (by simp [hfile, entry?])
    rw [findFrom?_skip (.inr hnone)]
    exact ih fun v hv => htodo v (List.mem_cons_of_mem _ hv)
  | case4 seen uri todo hmem file hfile decl hdecl =>
    obtain ⟨entry', hentry', hoffers⟩ := hstored uri (htodo uri (List.mem_cons_self ..)) file.entry
      (by simp [hfile, entry?])
    have hvariable := hoffers.declares name
    rw [hdecl, Option.map_some] at hvariable
    obtain ⟨decl', hdecl', hf⟩ := Option.map_eq_some_iff.1 hvariable.symm
    rw [findFrom?_visit hmem hentry', hdecl']
    simp only [Option.map_some, hf]
  | case5 seen uri todo hmem file hfile hdecl ih =>
    have hreach := htodo uri (List.mem_cons_self ..)
    have hentry : g.entry? uri = some file.entry := by simp [hfile, entry?]
    obtain ⟨entry', hentry', hoffers⟩ := hstored uri hreach file.entry hentry
    have hvariable := hoffers.declares name
    rw [hdecl, Option.map_none] at hvariable
    rw [findFrom?_visit hmem hentry', Option.map_eq_none_iff.1 hvariable.symm, ← hoffers.imports]
    refine ih fun v hv => ?_
    rcases List.mem_append.1 hv with himport | htodo'
    · exact hclosed uri hreach file.entry hentry v himport
    · exact htodo v (List.mem_cons_of_mem _ htodo')

/-- A variable is found in the same place in two registries that have read the same
    for the files that can be reached. -/
theorem findFrom?_congr {g' : Registry} (reach : Set Uri)
    (hsame : ∀ uri ∈ reach, g'.entry? uri = g.entry? uri)
    (hclosed : ∀ uri ∈ reach, ∀ entry, g.entry? uri = some entry → ∀ v ∈ entry.imports, v ∈ reach)
    (name : Text) (seen todo : List Uri) (htodo : ∀ uri ∈ todo, uri ∈ reach) :
    g'.findFrom? name seen todo = g.findFrom? name seen todo := by
  have hsame' : ∀ uri ∈ reach,
      Option.Rel (FileEntry.Offers id) (g.entry? uri) (g'.entry? uri) := by
    intro uri hreach
    rw [hsame uri hreach]
    cases g.entry? uri with
    | none => exact .none
    | some entry => exact .some ⟨rfl, fun _ => rfl⟩
  have hfound := findFrom?_map_congr id reach hsame' hclosed name seen todo htodo
  refine Option.map_injective (fun first second h => ?_) hfound
  obtain ⟨uri, decl⟩ := first
  obtain ⟨uri', decl'⟩ := second
  cases h
  rfl

end Registry

end IndentedSass
