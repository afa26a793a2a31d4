/-
  Loads inside each other.

  Reading a file loads the files that it imports, and these load others.

  * `Resolver.noting` notes the loads that it is asked for, and changes nothing else
    (`readFile_noting`);
  * `Registry.Call.nested` are the calls of `Registry.loadInChain` that such a call
    makes, `Registry.Stack` are calls inside each other;
  * `Registry.Call.Along` is what holds of every call of a stack, `Along.nested` the
    step and `Stack.along` the run;
  * `Registry.nested_loads`: a file that is reached under one spelling only is never
    read twice at the same time, calls go no deeper than there are files, and what
    leads back is not loaded.
-/
import Mathlib
import IndentedSass.Proofs.Workspace.Links

namespace IndentedSass

/-! ## Places -/

/-- The place that a path leads to, when every directory on the way exists. -/
def Path.place (p : Path) : List FileName :=
  p.names.foldl (fun here n => if n = FileName.up then here.dropLast else here ++ [n]) []

/-- The place of the file that a URI stands for. -/
def Uri.place? (u : Uri) : Option (List FileName) := u.path?.map Path.place

theorem Disk.follow?_eq_some {d : Disk} {here place : List FileName} {names : List FileName}
    (h : d.follow? here names = some place) :
    place = names.foldl (fun here n => if n = FileName.up then here.dropLast else here ++ [n])
      here := by
  induction names generalizing here with
  | nil => exact (Option.some.inj h).symm
  | cons n names ih =>
    simp only [follow?] at h
    split at h
    · exact ih h
    · cases h

namespace Resolver

variable {σ : Type}

/-- A resolver that also notes the loads it is asked for, each with the state that
    it starts from. -/
def noting (resolver : Resolver σ) : Resolver (σ × List (σ × Uri)) where
  resolve s base path :=
    let (found, state) := resolver.resolve s.1 base path
    (found, state, s.2)
  load s style uri :=
    let outcome := resolver.load s.1 style uri
    ⟨(outcome.state, s.2 ++ [(s.1, uri)]), outcome.warnings, outcome.error?⟩
  find s := resolver.find s.1

end Resolver

/-- The loads that reading a text asks for, in order. -/
def noted {σ : Type} (resolver : Resolver σ) (files : σ) (uri : Uri) (style : IndentStyle)
    (text : Text) : List (σ × Uri) :=
  (readFile resolver.noting (files, []) uri style text).files.2

/-- Noting the loads changes nothing.  What holds of the state at the start and is
    kept by every question and every load holds before each load and after them. -/
theorem readFile_noting {σ : Type} {P : σ → Prop} {files : σ} (resolver : Resolver σ) (uri : Uri)
    (style : IndentStyle) (text : Text) (hfiles : P files)
    (hresolve : ∀ {s path}, P s → P (resolver.resolve s uri path).2)
    (hload : ∀ {s v}, P s → P (resolver.load s style v).state) :
    (readFile resolver.noting (files, []) uri style text).reader =
        (readFile resolver files uri style text).reader ∧
      P (readFile resolver files uri style text).files ∧
      ∀ call ∈ noted resolver files uri style text, P call.1 ∧
        ∃ s path, P s ∧ path ∈ importedPaths style text ∧
          (resolver.resolve s uri path).1 = some call.2 := by
  have hsim : resolver.noting.Simulates resolver
      (fun _ x y => x.1 = y ∧ P y ∧ ∀ call ∈ x.2, P call.1 ∧
        ∃ s path, P s ∧ path ∈ importedPaths style text ∧
          (resolver.resolve s uri path).1 = some call.2)
      uri style (importedPaths style text) := by
    refine ⟨?_, ?_, ?_⟩
    · rintro _ ⟨s, calls⟩ _ path ⟨rfl, hs, hcalls⟩ -
      exact ⟨rfl, rfl, hresolve hs, hcalls⟩
    · rintro _ ⟨s, calls⟩ _ path v s' t ⟨rfl, hs, hcalls⟩ hpath hv hv'
      obtain ⟨hfound, rfl⟩ := Prod.mk.inj hv
      obtain ⟨-, rfl⟩ := Prod.ext_iff.1 hv'
      refine ⟨rfl, hload (hresolve hs), fun call hcall => ?_⟩
      rcases List.mem_append.1 hcall with hold | hnew
      · exact hcalls call hold
      · rw [List.mem_singleton.1 hnew]
        exact ⟨hresolve hs, s, path, hs, hpath, hfound⟩
    · rintro _ ⟨s, calls⟩ _ v ⟨rfl, -, -⟩ - line column turn name
      rfl
  obtain ⟨hreader, loaded, ⟨-, hend, hcalls⟩, -⟩ := readFile_simulates hsim (a := (files, []))
    ⟨rfl, hfiles, fun call hcall => by cases hcall⟩
  exact ⟨hreader, hend, hcalls⟩

namespace Registry

variable {disk : Disk} {style : IndentStyle} {g : Registry} {u : Uri}

/-! ## Calls -/

/-- A call of `Registry.loadInChain`. -/
structure Call where
  bound : Nat
  chain : List Uri
  registry : Registry
  uri : Uri

namespace Call

/-- What the call gives. -/
def loading (disk : Disk) (style : IndentStyle) (c : Call) : Loading :=
  loadInChain disk c.bound c.chain c.registry style c.uri

/-- The text that is read in the call; none when the file is in the chain, cannot be
    read or is kept from an earlier reading. -/
def text? (disk : Disk) (style : IndentStyle) (c : Call) : Option Text :=
  if c.bound = 0 ∨ c.uri ∈ c.chain then none
  else match c.registry.readText disk c.uri with
    | .error _ => none
    | .ok text => if (c.registry.stored? c.uri text style).isSome then none else some text

/-- Access to other files while the text of the call is read. -/
def resolver (disk : Disk) (c : Call) : Resolver Registry :=
  Registry.resolver disk (loadInChain disk (c.bound - 1) (c.chain ++ [c.uri]))

/-- The calls that are made while the text of the call is read. -/
def nested (disk : Disk) (style : IndentStyle) (c : Call) : List Call :=
  match c.text? disk style with
  | none => []
  | some text => (noted (c.resolver disk) c.registry c.uri style text).map fun (g, v) =>
      ⟨c.bound - 1, c.chain ++ [c.uri], g, v⟩

end Call

/-- The call that loads a file on its own. -/
def call (g : Registry) (u : Uri) : Call := ⟨g.chainBound, [], g, u⟩

/-- Calls inside each other, the outermost first, that begin with loading `u`. -/
structure Stack (disk : Disk) (style : IndentStyle) (g : Registry) (u : Uri) (stack : List Call) :
    Prop where
  first : stack.head? = some (g.call u)
  nested : stack.IsChain fun c d => d ∈ c.nested disk style

/-- The places of the files on disk and of the open documents. -/
def places (g : Registry) (disk : Disk) : List (List FileName) :=
  (disk.files.keys ++ g.documents.keys.filterMap Uri.place?).dedup

theorem Call.text?_eq_some {c : Call} {text : Text} (h : c.text? disk style = some text) :
    0 < c.bound ∧ c.uri ∉ c.chain ∧ c.registry.readText disk c.uri = .ok text ∧
      c.registry.stored? c.uri text style = none := by
  unfold text? at h
  split at h
  · cases h
  · rename_i hgo
    obtain ⟨hbound, hmem⟩ := not_or.1 hgo
    cases hread : c.registry.readText disk c.uri with
    | error e => simp [hread] at h
    | ok text' =>
      simp only [hread] at h
      split at h
      · cases h
      · rename_i hstored
        cases h
        exact ⟨Nat.pos_of_ne_zero hbound, hmem, rfl, by simpa using hstored⟩

/-- A call that reads a text gives what the reading gives. -/
theorem Call.loading_of_text {c : Call} {text : Text} (h : c.text? disk style = some text) :
    c.loading disk style =
      let reading := readFile (c.resolver disk) c.registry c.uri style text
      ⟨reading.files.store c.uri ⟨text, style, reading.entry⟩, reading.warnings, .ok reading.entry,
        false⟩ := by
  obtain ⟨hbound, hmem, hread, hstored⟩ := text?_eq_some h
  obtain ⟨bound, hb⟩ := Nat.exists_eq_add_one.2 hbound
  rw [loading, resolver, hb]
  exact loadInChain_of_new hmem hread hstored

/-- A call that reads no text leaves the registry as it is. -/
theorem Call.loading_of_none {c : Call} (h : c.text? disk style = none) :
    (c.loading disk style).registry = c.registry := by
  obtain ⟨bound, chain, g, u⟩ := c
  by_cases hmem : u ∈ chain
  · exact (loadInChain_of_mem hmem).1
  cases bound with
  | zero => rfl
  | succ bound =>
    simp only [loading]
    cases hread : g.readText disk u with
    | error e => rw [loadInChain_of_error hmem hread]
    | ok text =>
      cases hstored : g.stored? u text style with
      | some entry => rw [loadInChain_of_stored hmem hread hstored]
      | none => simp [text?, hmem, hread, hstored] at h

/-- Loading changes nothing but the files that were read. -/
theorem loadInChain_frame {α : Type} {f : Registry → α}
    (hf : ∀ g files, f { g with files } = f g) (bound : Nat) (chain : List Uri) (g : Registry)
    (u : Uri) : f (loadInChain disk bound chain g style u).registry = f g := by
  induction bound generalizing chain g u with
  | zero => rfl
  | succ bound ih =>
    cases htext : Call.text? disk style ⟨bound + 1, chain, g, u⟩ with
    | none => exact congrArg f (Call.loading_of_none htext)
    | some text =>
      have hload := congrArg (fun l => f l.registry) (Call.loading_of_text htext)
      refine hload.trans ((hf _ _).trans ?_)
      exact (readFile_noting _ _ _ _ (P := fun s : Registry => f s = f g) rfl (fun hs => hs)
        fun hs => (ih _ _ _).trans hs).2.1

/-- Loading leaves the documents as they are. -/
theorem loadInChain_documents (bound : Nat) (chain : List Uri) (g : Registry) (u : Uri) :
    (loadInChain disk bound chain g style u).registry.documents = g.documents :=
  loadInChain_frame (fun _ _ => rfl) bound chain g u

/-! ## Calls inside each other -/

/-- What holds of every call inside the one that loads `u`. -/
structure Call.Along (disk : Disk) (style : IndentStyle) (g : Registry) (u : Uri) (c : Call) :
    Prop where
  documents : c.registry.documents = g.documents
  bound : c.bound + c.chain.length = g.chainBound
  first : (c.chain ++ [c.uri]).head? = some u
  links : (c.chain ++ [c.uri]).IsChain (g.Links disk style)
  nodup : c.chain.Nodup

theorem Call.along_call (g : Registry) (u : Uri) : (g.call u).Along disk style g u :=
  ⟨rfl, Nat.add_zero _, rfl, .singleton u, .nil⟩

theorem Call.Along.nested {c d : Call} (hc : c.Along disk style g u)
    (hd : d ∈ c.nested disk style) :
    d.Along disk style g u ∧ d.chain = c.chain ++ [c.uri] ∧ c.uri.path?.isSome := by
  unfold Call.nested at hd
  cases htext : c.text? disk style with
  | none => simp [htext] at hd
  | some text =>
    obtain ⟨hbound, hmem, hread, -⟩ := text?_eq_some htext
    simp only [htext, List.mem_map] at hd
    obtain ⟨⟨files, v⟩, hcall, rfl⟩ := hd
    obtain ⟨-, -, hnoted⟩ := readFile_noting (c.resolver disk) c.uri style text
      (P := fun s : Registry => s.documents = g.documents) hc.documents (fun hs => hs)
      fun hs => (loadInChain_documents _ _ _ _).trans hs
    obtain ⟨hfiles, s, path, hs, hpath, hresolve⟩ := hnoted _ hcall
    have hlink : g.Links disk style c.uri v :=
      ⟨text, (readText_congr hc.documents c.uri).symm.trans hread, path, hpath,
        (resolve?_congr hs c.uri path).symm.trans hresolve⟩
    refine ⟨⟨hfiles, ?_, ?_, hlink.concat hc.links, ?_⟩, rfl, ?_⟩
    · have := hc.bound
      simp only [List.length_append, List.length_singleton]
      omega
    · rw [List.head?_append, hc.first]
      rfl
    · exact List.nodup_append.2 ⟨hc.nodup, List.nodup_singleton _, fun x hx y hy => by
        rw [List.mem_singleton.1 hy]
        rintro rfl
        exact hmem hx⟩
    · cases hp : c.uri.path? with
      | none =>
        have hnone : s.resolve? disk c.uri path = none := by simp [resolve?, hp, bind]
        cases hnone.symm.trans hresolve
      | some p => rfl

/-- The place of a file that can be read is that of a document or of a file on disk. -/
theorem mem_places {text : Text} (hread : g.readText disk u = .ok text) {p : Path}
    (hp : u.path? = some p) : p.place ∈ g.places disk := by
  simp only [places, List.mem_dedup, List.mem_append, List.mem_filterMap]
  unfold readText at hread
  split at hread
  · rename_i hopen
    obtain ⟨d, hget, -⟩ := Option.map_eq_some_iff.1 hopen
    exact .inr ⟨u, Table.mem_keys_of_get? hget, by simp [Uri.place?, hp]⟩
  · cases hread
  · rename_i path _ hbytes
    have hpath : p = .ofBytes path := by
      rw [Uri.path?, hbytes] at hp
      exact (Option.some.inj hp).symm
    split at hread
    · rename_i htext
      obtain ⟨bytes, hbytes, -⟩ := Option.bind_eq_some_iff.1 htext
      unfold Disk.read? at hbytes
      split at hbytes
      · cases hbytes
      · obtain ⟨place, hplace, hget⟩ := Option.bind_eq_some_iff.1 hbytes
        rw [hpath, Path.place, ← Disk.follow?_eq_some hplace]
        exact .inl (Table.mem_keys_of_get? hget)
    · cases hread

theorem Stack.along {stack : List Call} {c : Call} (h : Stack disk style g u (stack ++ [c])) :
    c.Along disk style g u ∧ c.chain = stack.map (·.uri) ∧
      ∀ d ∈ stack, (d.text? disk style).isSome ∧
        ∃ place ∈ g.places disk, d.uri.place? = some place := by
  induction stack using List.reverseRecOn generalizing c with
  | nil =>
    obtain rfl : c = g.call u := by simpa using h.first
    exact ⟨Call.along_call g u, rfl, by simp⟩
  | append_singleton stack d ih =>
    obtain ⟨hbefore, -, hlast⟩ := List.isChain_append.1 h.nested
    have hnested : c ∈ d.nested disk style := hlast d (by simp) c (by simp)
    obtain ⟨hd, hchain, hmore⟩ := ih ⟨by simpa using h.first, hbefore⟩
    obtain ⟨hc, hchain', hpath⟩ := hd.nested hnested
    refine ⟨hc, by rw [hchain', hchain, List.map_append]; rfl, fun e he => ?_⟩
    rcases List.mem_append.1 he with he | he
    · exact hmore e he
    · rw [List.mem_singleton.1 he]
      obtain ⟨p, hp⟩ := Option.isSome_iff_exists.1 hpath
      cases htext : d.text? disk style with
      | none => simp [Call.nested, htext] at hnested
      | some text =>
        obtain ⟨-, -, hread, -⟩ := Call.text?_eq_some htext
        rw [readText_congr hd.documents] at hread
        exact ⟨rfl, p.place, mem_places hread hp, by simp [Uri.place?, hp]⟩

/-- The files of a chain can all be reached from the first one. -/
theorem reachable_of_chain {chain : List Uri} (hfirst : chain.head? = some u)
    (hchain : chain.IsChain (g.Links disk style)) {v : Uri} (hv : v ∈ chain) :
    Relation.ReflTransGen (g.Links disk style) u v := by
  cases chain with
  | nil => cases hv
  | cons w rest =>
    obtain rfl : w = u := Option.some.inj hfirst
    have hpairs : (w :: rest).Pairwise (Relation.ReflTransGen (g.Links disk style)) :=
      (hchain.imp fun _ _ hlink => Relation.ReflTransGen.single hlink).pairwise
    rcases List.mem_cons.1 hv with rfl | hv
    · exact .refl
    · exact (List.pairwise_cons.1 hpairs).1 v hv

/-- The files that are reached from `u` are each reached under one spelling. -/
def OneSpelling (g : Registry) (disk : Disk) (style : IndentStyle) (u : Uri) : Prop :=
  ∀ v w, Relation.ReflTransGen (g.Links disk style) u v →
    Relation.ReflTransGen (g.Links disk style) u w → v.place? = w.place? → v = w

/-- The places of files that are read at the same time are different. -/
theorem Stack.places_nodup {stack : List Call} (hspelling : g.OneSpelling disk style u)
    (h : Stack disk style g u stack) :
    ((stack.filter fun c => (c.text? disk style).isSome).map fun c => c.uri.place?).Nodup := by
  induction stack using List.reverseRecOn with
  | nil => simp
  | append_singleton stack c _ =>
    obtain ⟨hc, hchain, hread⟩ := h.along
    have hreach : ∀ v ∈ c.chain ++ [c.uri], Relation.ReflTransGen (g.Links disk style) u v :=
      fun v hv => reachable_of_chain hc.first hc.links hv
    have huris : ((stack ++ [c]).filter fun c => (c.text? disk style).isSome).map (·.uri) =
        c.chain ++ if (c.text? disk style).isSome then [c.uri] else [] := by
      rw [List.filter_append, List.filter_eq_self.2 fun d hd => (hread d hd).1, List.map_append,
        hchain, List.filter_singleton]
      split <;> simp_all
    have hnodup : (((stack ++ [c]).filter fun c => (c.text? disk style).isSome).map
        (·.uri)).Nodup := by
      rw [huris]
      split
      · rename_i hreads
        obtain ⟨text, htext⟩ := Option.isSome_iff_exists.1 hreads
        obtain ⟨-, hmem, -, -⟩ := Call.text?_eq_some htext
        exact List.nodup_append.2 ⟨hc.nodup, List.nodup_singleton _, fun x hx y hy => by
          rw [List.mem_singleton.1 hy]
          rintro rfl
          exact hmem hx⟩
      · simpa using hc.nodup
    have hmem : ∀ v ∈ ((stack ++ [c]).filter fun c => (c.text? disk style).isSome).map (·.uri),
        v ∈ c.chain ++ [c.uri] := by
      rw [huris]
      intro v hv
      rcases List.mem_append.1 hv with hv | hv
      · exact List.mem_append_left _ hv
      · split at hv
        · exact List.mem_append_right _ hv
        · cases hv
    have hplaces := hnodup.map_on (f := Uri.place?) fun v hv w hw hvw =>
      hspelling v w (hreach v (hmem v hv)) (hreach w (hmem w hw)) hvw
    rwa [List.map_map] at hplaces

/-- Calls inside each other go no deeper than there are files. -/
theorem Stack.length_le {stack : List Call} (hspelling : g.OneSpelling disk style u)
    (h : Stack disk style g u stack) : stack.length ≤ (g.places disk).length + 1 := by
  induction stack using List.reverseRecOn with
  | nil => simp
  | append_singleton stack c _ =>
    obtain ⟨hc, hchain, hread⟩ := h.along
    have hinner : (stack.map fun d => d.uri.place?).Nodup := by
      have hall := h.places_nodup hspelling
      rw [List.filter_append, List.filter_eq_self.2 fun d hd => (hread d hd).1,
        List.map_append] at hall
      exact (List.nodup_append.1 hall).1
    have hsub : (stack.map fun d => d.uri.place?) ⊆ (g.places disk).map some := by
      intro place hplace
      obtain ⟨d, hd, rfl⟩ := List.mem_map.1 hplace
      obtain ⟨place, hmem, heq⟩ := (hread d hd).2
      exact List.mem_map.2 ⟨place, hmem, heq.symm⟩
    have hle := (hinner.subperm hsub).length_le
    simpa using hle

/-- An import that leads back to a file that is being read fails. -/
theorem Stack.result_of_back {stack : List Call} {c d : Call}
    (hspelling : g.OneSpelling disk style u) (h : Stack disk style g u (stack ++ [c]))
    (hd : d ∈ stack) (hplace : d.uri.place? = c.uri.place?) :
    (c.loading disk style).result = .error (.importCycle c.uri) := by
  obtain ⟨hc, hchain, -⟩ := h.along
  have hmem : d.uri ∈ c.chain := by
    rw [hchain]
    exact List.mem_map_of_mem hd
  have hreach := fun {v} => reachable_of_chain (v := v) hc.first hc.links
  have hsame : d.uri = c.uri :=
    hspelling _ _ (hreach (List.mem_append_left _ hmem)) (hreach (by simp)) hplace
  rw [hsame] at hmem
  exact (loadInChain_of_mem hmem).2

/-! ## Spellings -/

/-- A URI as `Uri.ofPath` writes it, without a way back. -/
def IsPlain (u : Uri) : Prop := ∀ p ∈ u.path?, u = .ofPath p ∧ FileName.up ∉ p.names

instance (u : Uri) : Decidable (IsPlain u) :=
  inferInstanceAs (Decidable (∀ p ∈ u.path?, u = .ofPath p ∧ FileName.up ∉ p.names))

theorem place_of_plain {p : Path} (h : FileName.up ∉ p.names) : p.place = p.names := by
  have key : ∀ (names here : List FileName), FileName.up ∉ names →
      names.foldl (fun here n => if n = FileName.up then here.dropLast else here ++ [n]) here =
        here ++ names := by
    intro names
    induction names with
    | nil => simp
    | cons n names ih =>
      intro here hup
      rw [List.mem_cons, not_or] at hup
      rw [List.foldl_cons, if_neg (Ne.symm hup.1), ih _ hup.2]
      simp
  exact key p.names [] h

/-- Paths without a way back are spellings of their own. -/
theorem oneSpelling_of_plain (hroot : IsPlain u)
    (hlinks : ∀ v w, g.Links disk style v w → IsPlain w) : g.OneSpelling disk style u := by
  have htarget : ∀ {v w}, g.Links disk style v w → w.path? ≠ none := by
    rintro v w ⟨text, -, path, -, hresolve⟩ hnone
    obtain ⟨p, hclean, hne, -, rfl⟩ := resolve?_eq_some hresolve
    obtain ⟨q, hq, -⟩ := Uri.path?_ofPath hclean hne
    rw [hnone] at hq
    cases hq
  have hcases : ∀ v, Relation.ReflTransGen (g.Links disk style) u v →
      IsPlain v ∧ (v.path? = none → v = u) := by
    intro v hv
    rcases hv.cases_tail with rfl | ⟨w, -, hlink⟩
    · exact ⟨hroot, fun _ => rfl⟩
    · exact ⟨hlinks w v hlink, fun hnone => absurd hnone (htarget hlink)⟩
  intro v w hv hw hplace
  obtain ⟨hplain, hroot⟩ := hcases v hv
  obtain ⟨hplain', hroot'⟩ := hcases w hw
  cases hp : v.path? with
  | none =>
    have hnone : w.path? = none := by simpa [Uri.place?, hp] using hplace.symm
    rw [hroot hp, hroot' hnone]
  | some p =>
    obtain ⟨q, hq, hpq⟩ : ∃ q, w.path? = some q ∧ q.place = p.place := by
      simpa [Uri.place?, hp] using hplace.symm
    obtain ⟨rfl, hup⟩ := hplain p hp
    obtain ⟨rfl, hup'⟩ := hplain' q hq
    rw [place_of_plain hup, place_of_plain hup'] at hpq
    simp only [Uri.ofPath, hpq]

/-- Loads inside each other, when no file is reached under two spellings: a file is
    not read while it is being read, the loads go no deeper than there are files, and
    an import that leads back fails. -/
theorem nested_loads {stack : List Call} (hspelling : g.OneSpelling disk style u)
    (h : Stack disk style g u stack) :
    ((stack.filter fun c => (c.text? disk style).isSome).map fun c => c.uri.place?).Nodup ∧
      stack.length ≤ (g.places disk).length + 1 ∧
      ∀ before c, stack = before ++ [c] → ∀ d ∈ before, d.uri.place? = c.uri.place? →
        (c.loading disk style).result = .error (.importCycle c.uri) := by
  refine ⟨h.places_nodup hspelling, h.length_le hspelling, ?_⟩
  rintro before c rfl d hd hplace
  exact h.result_of_back hspelling hd hplace

/-- Two documents that import each other. -/
def circle : Registry := ofDocuments [("/a.sass", "@import 'b'"), ("/b.sass", "@import 'a'")]

theorem nested_loads_circle :
    let a : Uri := .ofPath (.ofBytes (FileName.ofString "/a.sass"))
    circle.OneSpelling {} {} a ∧ ∃ c d e, Stack {} {} circle a [c, d, e] ∧ e.uri = a ∧
      (e.loading {} {}).result = .error (.importCycle a) := by
  intro a
  have hspelling : circle.OneSpelling {} {} a := by
    refine oneSpelling_of_plain (by decide +kernel) fun v w h => ?_
    obtain ⟨d, hd, path, hpath, hw⟩ := h.document
    have hall : ∀ e ∈ circle.documents.entries, ∀ path ∈ importedPaths {} e.2.text,
        ∀ w ∈ circle.resolve? {} e.1 path, ∀ p ∈ w.path?,
          w = .ofPath p ∧ FileName.up ∉ p.names := by
      decide +kernel
    exact hall (v, d) hd path hpath w hw
  have hback : ∃ d ∈ (circle.call a).nested {} {}, ∃ e ∈ d.nested {} {}, e.uri = a := by
    decide +kernel
  obtain ⟨d, hd, e, he, hea⟩ := hback
  have hstack : Stack {} {} circle a [circle.call a, d, e] := ⟨rfl, by simp [hd, he]⟩
  obtain ⟨-, -, hresult⟩ := nested_loads hspelling hstack
  refine ⟨hspelling, circle.call a, d, e, hstack, hea, ?_⟩
  rw [← hea]
  exact hresult [circle.call a, d] e rfl (circle.call a) (by simp) (by rw [hea]; rfl)

/-- A document that imports the file of its own path, spelled with a way back.  On
    disk the file is empty. -/
def detour : Registry × Disk :=
  (ofDocuments [("/d/a.sass", "@import '../d/a'")],
    ({} : Disk).write (.ofBytes (FileName.ofString "/d/a.sass")) [])

/-- The document and the file at its place are read inside each other, and the import
    that leads back does not fail. -/
theorem nested_loads_of_detour :
    let u : Uri := .ofPath (.ofBytes (FileName.ofString "/d/a.sass"))
    ((detour.1.call u).text? detour.2 {}).isSome ∧
      ∃ c ∈ (detour.1.call u).nested detour.2 {}, c.uri.place? = u.place? ∧
        (c.text? detour.2 {}).isSome ∧ (c.loading detour.2 {}).result.isOk := by
  decide +kernel

end Registry

end IndentedSass
